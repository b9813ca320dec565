import Mathlib
import Polyglot.Proofs.Codec.Compositional
import Polyglot.Proofs.Codec.Nesting
import Polyglot.Proofs.Codec.RoundTrip
import Polyglot.Proofs.Envelope.Answer
import Polyglot.Proofs.Request.Binding
import Polyglot.Proofs.Request.Parts
import Polyglot.Proofs.Script.Declared
import Polyglot.Worker.Service

/-!
# What a worker hands over

The envelope of a successful run is printed on one line, and the other side reads it again.
`execute_ensures` says what the envelope is: it holds the wire value of the result, of which all types
are parts of the request or of the replies to the calls that were made.  So it is well-formed, and
`parse_render_execute_iff` says when it is read back: it must not be nested too deep.  Lists are, when
they are long (`parse_render_of_list`).
-/

namespace Polyglot

namespace Worker

variable {P : Json → Prop} {Reply : Except Fault Value → Prop}

/-! ### Successful runs -/

theorem everyDeclared_decode_fault (hP : Json.Compositional P) {wire : Json} (h : P wire) {v : Value}
    (hv : (Codec.builtin.decode wire).mapError Fault.codec = .ok v) : v.EveryDeclared P := by
  cases hdec : Codec.builtin.decode wire with
  | error e =>
    rw [hdec] at hv
    cases hv
  | ok u =>
    rw [hdec] at hv
    obtain rfl := Except.ok.inj hv
    exact hP.everyDeclared_decode h hdec

theorem everyDeclared_decodeAll (hP : Json.Compositional P) {arguments : List Json}
    (h : ∀ wire ∈ arguments, P wire) {values : List Value} (hv : decodeAll arguments = .ok values) :
    ∀ v ∈ values, v.EveryDeclared P :=
  Traversal.forall_mem_of_mapM_eq_ok hv fun wire hwire _ hv =>
    everyDeclared_decode_fault hP (h wire hwire) hv

theorem ensures_ofFault_bind {α β : Type} {x : Except Fault α} {f : α → Execution β} {Q : β → Prop}
    (h : ∀ a, x = .ok a → (f a).run.Ensures Reply fun r => ∀ b, r = .ok b → Q b) :
    (ofFault x >>= f).run.Ensures Reply fun r => ∀ b, r = .ok b → Q b := by
  cases x with
  | error fault => rintro _ ⟨⟩
  | ok a => exact h a rfl

theorem ensures_liftM_bind {α β : Type} {x : Talk α} {f : α → Execution β} {R : α → Prop}
    {Q : Except Failure β → Prop} (hx : x.Ensures Reply R)
    (hf : ∀ a, R a → (f a).run.Ensures Reply Q) :
    ((liftM x : Execution α) >>= f).run.Ensures Reply Q := by
  refine Talk.Ensures.bind (P := fun r => ∃ a, R a ∧ r = .ok a) ?_ ?_
  · exact hx.bind fun a ha => ⟨a, ha, rfl⟩
  · rintro _ ⟨a, ha, rfl⟩
    exact hf a ha

/-- What a request is answered with, if its run succeeds: an envelope around a wire value with every
property that goes with the parts of objects and that the request and all replies have. -/
theorem execute_ensures (hP : Json.Compositional P) {request : Request} (hrequest : request.Holds P)
    (hreply : ∀ v, Reply (.ok v) → v.EveryDeclared P) :
    (execute request).run.Ensures Reply fun result => ∀ envelope, result = .ok envelope →
      ∃ wire, P wire ∧ envelope = Envelope.make (some (visible wire)) none := by
  refine ensures_ofFault_bind fun name _ => ?_
  refine ensures_ofFault_bind fun code _ => ?_
  refine ensures_ofFault_bind fun wires hwires => ?_
  refine ensures_ofFault_bind fun arguments harguments => ?_
  refine ensures_ofFault_bind fun program _ => ?_
  -- The run is given values of the request only, and encoding asks for a type of it.
  have hargs : ∀ v ∈ arguments, v.EveryDeclared P := by
    refine everyDeclared_decodeAll hP (fun wire hwire => ?_) harguments
    obtain ⟨f, hf, rfl⟩ := Request.exists_mem_of_bind hwires wire hwire
    exact hrequest.1 f hf
  have htype : P (typeOf request) := by
    rw [typeOf]
    cases ht : request.returnType with
    | none => exact hP.reference _
    | some type => exact hrequest.2 type ht
  refine ensures_liftM_bind (Script.invoke_ensures hreply program name hargs) fun r hr => ?_
  refine ensures_ofFault_bind fun result hresult => ?_
  cases hwire : Codec.builtin.encode result (typeOf request) with
  | error failure => rintro _ ⟨⟩
  | ok wire =>
    intro envelope h
    exact ⟨wire, hP.encode (hr result hresult) htype hwire, (Except.ok.inj h).symm⟩

/-- The envelope around a result is an answer: the result is not void, and there is no error. -/
theorem isAnswer_make_visible (wire : Json) :
    Envelope.isAnswer (Envelope.make (some (visible wire)) none) = true := by
  have hvoid : Envelope.isVoid (visible wire) = false := by
    unfold visible
    split_ifs with h
    · decide
    · simpa using h
  exact Envelope.isAnswer_make hvoid

/-- A well-formed value in an envelope makes a well-formed envelope. -/
theorem wellFormed_make_visible {wire : Json} (h : wire.WellFormed) :
    (Envelope.make (some (visible wire)) none).WellFormed := by
  have hP := Json.compositional_wellFormed
  have hvisible : (visible wire).WellFormed := by
    unfold visible
    split_ifs
    · exact hP.unitWire
    · exact h
  refine .obj (Json.Fields.ascending_of_keys ["Z1K1", "Z22K1", "Z22K2"] rfl (by decide)) ?_
  simpa [Envelope.void] using ⟨hP.reference TypeId.envelope, hvisible, hP.reference TypeId.void⟩

/-! ### Replies -/

/-- The value that a reply is declares only well-formed types. -/
theorem everyDeclared_of_replyOf {function : String} {line : Text.Raw} {v : Value}
    (h : replyOf function line = .ok v) : v.EveryDeclared Json.WellFormed := by
  have hP := Json.compositional_wellFormed
  obtain ⟨text, -, h⟩ := Traversal.bind_eq_ok_iff.mp h
  split at h
  · cases h
  · split at h
    · rename_i reply hread
      have hwf := Json.wellFormed_of_read? hread
      rw [readReply] at h
      split_ifs at h
      · split at h
        · rename_i wire hvalue
          exact everyDeclared_decode_fault hP
            (hP.field? hwf (Option.filter_eq_some_iff.mp hvalue).1) h
        · exact Except.ok.inj h ▸ .unit
      · exact everyDeclared_decode_fault hP hwf h
    · cases h

/-! ### Long lists -/

/-- A result that is a list of 126 items or more is taken for nonsense, whatever its items are. -/
theorem parse_render_of_list {items : List Value} {type wire : Json}
    (hitems : (Value.list items).EveryDeclared Json.WellFormed) (htype : type.WellFormed)
    (h : Codec.builtin.encode (.list items) type = .ok wire)
    (hlength : Json.maxDepth ≤ items.length + 1) :
    Envelope.parse (Envelope.make (some (visible wire)) none).render =
      .error (Envelope.nonsense (Envelope.make (some (visible wire)) none).render) := by
  obtain ⟨hdepth, hvoid⟩ := Codec.holdsList_of_encode h
  have hwf := wellFormed_make_visible (Json.compositional_wellFormed.encode hitems htype h)
  have hvisible : visible wire = wire := by simp [visible, hvoid]
  -- The list has a cell for each item and one more, and the envelope is around all of them.
  have hmake : (visible wire).depth < (Envelope.make (some (visible wire)) none).depth :=
    Json.depth_lt_depth_of_mem (f := ("Z22K1", visible wire)) (by simp)
  rw [hvisible] at hmake hwf ⊢
  have hdeep : Json.maxDepth < (Envelope.make (some wire) none).depth := by omega
  exact Envelope.parse_render_of_maxDepth_lt hwf hdeep

/-! ### Cutting a text into its characters -/

/-- A run whose parts all succeed, and which calls nothing, is answered with its result. -/
theorem run_execute {request : Request} {name code : String} {wires : List Json}
    {arguments : List Value} {program : Script.Program} {result : Value} {wire : Json}
    (hname : nameOf request = .ok name) (hcode : codeOf request = .ok code)
    (hwires : Request.bind name request.arguments = .ok wires)
    (harguments : decodeAll wires = .ok arguments) (hprogram : Script.compile code = .ok program)
    (hresult : Script.invoke program name arguments = .done (.ok result))
    (hwire : Codec.builtin.encode result (typeOf request) = .ok wire) :
    (execute request).run = .done (.ok (Envelope.make (some (visible wire)) none)) := by
  rw [execute, hname, hcode]
  show (ofFault (Request.bind name request.arguments) >>= _).run = _
  rw [hwires]
  show (ofFault (decodeAll wires) >>= _).run = _
  rw [harguments]
  show (ofFault (Script.compile code) >>= _).run = _
  rw [hprogram]
  show ((liftM (Script.invoke program name arguments) : Execution _) >>= _).run = _
  rw [hresult]
  show (ofEncode (Codec.builtin.encode result (typeOf request)) >>= _).run = _
  rw [hwire]
  rfl

/-- The request to cut a text into its characters. -/
def splitRequest (text : String) : Request where
  name := some "f"
  code := some "function f(a) \x7b return split(a, \"\"); \x7d"
  arguments := [("K1", .str text)]
  returnType := none

/-- The script of the request. -/
def splitProgram : Script.Program :=
  [.function (.mk "f" ["a"] (.block [.return (some (.call (.name "split")
    [.name "a", .literal (.text "")]))]))]

theorem compile_split :
    Script.compile "function f(a) \x7b return split(a, \"\"); \x7d" = .ok splitProgram := by
  with_unfolding_all rfl

theorem holds_splitRequest (text : String) :
    (splitRequest text).Holds Json.WellFormed :=
  ⟨fun _ hf => List.mem_singleton.mp hf ▸ .str text, by rintro _ ⟨⟩⟩

set_option maxRecDepth 20000 in
theorem invoke_splitProgram :
    Script.invoke splitProgram "f" [.text (String.ofList (List.replicate 126 'x'))] =
      .done (.ok (.list (List.replicate 126 (.text "x")))) := by
  cbv

/-! ### The line of a successful run -/

/-- The line that a worker prints for a successful run is accepted as the envelope itself exactly
when the envelope is nested no deeper than the reader goes and its numbers are all read back.  One that
is nested deeper is taken for nonsense. -/
theorem parse_render_execute_iff {request : Request} (hrequest : request.Holds Json.WellFormed)
    {σ : Type} {answer : String → List Value → σ → Except Fault Value × σ}
    (hanswer : ∀ function arguments s v, (answer function arguments s).1 = .ok v →
      v.EveryDeclared Json.WellFormed)
    {s : σ} {envelope : Json}
    (h : ((execute request).run.answeredBy answer s).1 = .ok envelope) :
    (Envelope.parse envelope.render = .ok envelope ↔
      envelope.depth ≤ Json.maxDepth ∧ ∀ n ∈ envelope.numbers, n.reread? = some n) ∧
    (Json.maxDepth < envelope.depth →
      Envelope.parse envelope.render = .error (Envelope.nonsense envelope.render)) := by
  have hensures : (execute request).run.Ensures
      (fun reply => ∀ v, reply = .ok v → v.EveryDeclared Json.WellFormed) _ :=
    execute_ensures Json.compositional_wellFormed hrequest fun v hv => hv v rfl
  -- Whatever was answered, the envelope is one around a well-formed value.
  obtain ⟨wire, hwire, rfl⟩ := hensures.answeredBy hanswer s envelope h
  have hwf := wellFormed_make_visible hwire
  constructor
  · rw [Envelope.parse_render_iff hwf]
    exact and_iff_right (isAnswer_make_visible wire)
  · exact Envelope.parse_render_of_maxDepth_lt hwf

/-- The characters of a short text come through. -/
theorem parse_render_execute_iff_split : ∃ envelope,
    ((execute (splitRequest "ab")).run.answeredBy
        (fun _ _ (s : Unit) => (.ok (.text "late"), s)) ()).1 = .ok envelope ∧
      Envelope.parse envelope.render = .ok envelope := by
  have hdecode : decodeAll [.str "ab"] = .ok [.text "ab"] := by
    rw [decodeAll, List.mapM_cons, List.mapM_nil, Codec.decode]
    rfl
  have hinvoke : Script.invoke splitProgram "f" [.text "ab"] =
      .done (.ok (.list [.text "a", .text "b"])) := by
    cbv
  have hwithin : Codec.encodeWithin Codec.builtin 3 (.list [.text "a", .text "b"])
      (Wire.reference TypeId.any) =
        .ok (Wire.listWith (Wire.listOf (.str "Z6")) [Wire.text "a", Wire.text "b"]) := by
    cbv
  have hwire := (Codec.encode_eq_encodeWithin (by rw [hwithin]; rintro ⟨⟩)).trans
    hwithin
  have hrun : (execute (splitRequest "ab")).run = _ :=
    run_execute rfl (by decide +kernel) rfl hdecode compile_split hinvoke hwire
  have hanswered : ((execute (splitRequest "ab")).run.answeredBy
      (fun _ _ (s : Unit) => (.ok (.text "late"), s)) ()).1 =
        .ok (Envelope.make (some (visible (Wire.listWith (Wire.listOf (.str "Z6"))
          [Wire.text "a", Wire.text "b"]))) none) := by
    rw [hrun]
    rfl
  have hanswer : ∀ v, (.ok (.text "late") : Except Fault Value) = .ok v →
      v.EveryDeclared Json.WellFormed := fun v hv => Except.ok.inj hv ▸ .text "late"
  refine ⟨_, hanswered, ((parse_render_execute_iff (holds_splitRequest "ab")
    (fun _ _ _ => hanswer) hanswered).1).mpr ⟨?_, ?_⟩⟩
  · decide +kernel
  · decide +kernel

/-- The characters of a text, if there are 126 of them, are taken for nonsense. -/
theorem parse_render_execute_split : ∃ request envelope,
    (execute request).run = .done (.ok envelope) ∧
      Envelope.parse envelope.render = .error (Envelope.nonsense envelope.render) := by
  have hdecode : decodeAll [.str (String.ofList (List.replicate 126 'x'))] =
      .ok [.text (String.ofList (List.replicate 126 'x'))] := by
    rw [decodeAll, List.mapM_cons, List.mapM_nil, Codec.decode, Codec.bareValue, TypeId.isToken,
      String.toList_ofList]
    rfl
  have hitems : ∀ v ∈ List.replicate 126 (Value.text "x"), v = .text "x" := by
    intro v hv
    exact List.eq_of_mem_replicate hv
  obtain ⟨wire, hwire⟩ := Codec.Untyped.exists_encodeAny
    (.list fun v hv => hitems v hv ▸ Codec.Untyped.text "x")
  have hrun : (execute (splitRequest (String.ofList (List.replicate 126 'x')))).run = _ :=
    run_execute rfl (by decide +kernel) rfl hdecode compile_split invoke_splitProgram hwire
  refine ⟨_, _, hrun, parse_render_of_list ?_ ?_ hwire ?_⟩
  · exact .list fun v hv => hitems v hv ▸ .text "x"
  · exact Json.compositional_wellFormed.reference _
  · simp [Json.maxDepth]

end Worker

end Polyglot
