import Polyglot.Call
import Polyglot.Proofs.Codec.Regular
import Polyglot.Proofs.Json.Depth
import Polyglot.Proofs.Request.Parts

/-!
# Requests that are read back

A request holds its arguments two levels deep, and reading has a limit on nesting.  So a written
request is read back exactly when no argument and no type is nested too deep there, the type to return
is not null, which stands for none, and its numbers are read back (`read?_render_eq_self_iff`).

A call holds the arguments just one level deep.  So not every call that is read makes a request that is
read back (`read?_render_request_iff`): an argument may come in that does not get through.
-/

namespace Polyglot

namespace Json

theorem settleWithin?_written {j : Json} (h : j.WellFormed) (limit : Nat) :
    j.written.settleWithin? limit = if j.depth ≤ limit then j.reread? else none := by
  rw [Draft.settleWithin?, depth_written, settle?_written h]

theorem rereadFields?_eq_self_iff_forall {fields : Fields Json} :
    rereadFields? fields = some fields ↔ ∀ f ∈ fields, f.2.reread? = some f.2 := by
  induction fields with
  | nil => simp [rereadFields?]
  | cons f fields ih =>
    rw [List.forall_mem_cons, ← ih, rereadFields?]
    simp only [Option.bind_eq_bind, Option.bind_eq_some_iff]
    constructor
    · rintro ⟨x, hx, xs, hxs, h⟩
      obtain ⟨hf, rfl⟩ := List.cons.inj (Option.some.inj h)
      obtain rfl : x = f.2 := (Prod.ext_iff.mp hf).2
      exact ⟨hx, hxs⟩
    · rintro ⟨hx, hxs⟩
      exact ⟨_, hx, _, hxs, rfl⟩

end Json

namespace Request

open Json (maxDepth)

/-! ### What is read -/

theorem record?_written (r : Request) : (Json.obj r.fields).written.record? fieldNames =
    some (r.fields.map fun f => (f.1, f.2.written)) := by
  obtain ⟨name, code, arguments, returnType⟩ := r
  cases name <;> cases code <;> cases returnType <;> rfl

/-- The fields of a record that are there, each a draft. -/
theorem find?_written (r : Request) :
    let field := Json.Fields.find? (r.fields.map fun f => (f.1, f.2.written))
    field "functionName" = r.name.map (fun s => .str (some s)) ∧
      field "codeString" = r.code.map (fun s => .str (some s)) ∧
      field "functionArguments" = some (Json.obj r.arguments).written ∧
      field "returnType" = r.returnType.map Json.written := by
  obtain ⟨name, code, arguments, returnType⟩ := r
  cases name <;> cases code <;> cases returnType <;> exact ⟨rfl, rfl, rfl, rfl⟩

theorem optional?_text (s : Option String) :
    Json.Draft.optional? Json.Draft.text? (s.map fun s => .str (some s)) = some s := by
  cases s <;> rfl

/-- What is read back is the request with what its arguments and its type are read as. -/
theorem read?_render (r : Request) : read? r.render = (do
    let arguments ← ((Json.obj r.arguments).written.settleWithin? (maxDepth - 1)).bind objectFields?
    let returnType ← Json.Draft.optional? (Json.Draft.settleWithin? (maxDepth - 1))
      (r.returnType.map Json.written)
    pure ⟨r.name, r.code, arguments, returnType⟩) := by
  obtain ⟨hname, hcode, harguments, htype⟩ := r.find?_written
  rw [read?, render, Json.ofText?_render, Option.bind_some, ofDraft?, record?_written]
  simp only [Option.bind_eq_bind, Option.bind_some, hname, hcode, harguments, htype, optional?_text,
    Json.Draft.defaulted?]

/-- What the arguments are read as. -/
theorem settle_arguments {arguments : Json.Fields Json} (hk : arguments.Ascending)
    (h : ∀ f ∈ arguments, f.2.WellFormed) :
    ((Json.obj arguments).written.settleWithin? (maxDepth - 1)).bind objectFields? =
      if ∀ f ∈ arguments, f.2.depth + 2 ≤ maxDepth then Json.rereadFields? arguments else none := by
  have hdepth : (Json.obj arguments).depth ≤ maxDepth - 1 ↔
      ∀ f ∈ arguments, f.2.depth + 2 ≤ maxDepth := by
    rw [Json.depth, maxDepth, Nat.add_one_le_iff, Nat.lt_iff_le_pred (by decide),
      Json.depthFields_le_iff]
    exact forall₂_congr fun f _ => by omega
  rw [Json.settleWithin?_written (.obj hk h), Json.reread?]
  by_cases hle : ∀ f ∈ arguments, f.2.depth + 2 ≤ maxDepth
  · rw [if_pos (hdepth.mpr hle), if_pos hle]
    cases Json.rereadFields? arguments <;> rfl
  · rw [if_neg fun hd => hle (hdepth.mp hd), if_neg hle]
    rfl

/-- What a type to return is read as, unless it is null. -/
theorem settle_returnType {type : Json} (h : type.WellFormed) (hnull : type ≠ .null) :
    Json.Draft.optional? (Json.Draft.settleWithin? (maxDepth - 1)) (some type.written) =
      (if type.depth + 1 ≤ maxDepth then type.reread? else none).map some := by
  have hdepth : type.depth ≤ maxDepth - 1 ↔ type.depth + 1 ≤ maxDepth := by
    rw [maxDepth]
    omega
  have hoptional : Json.Draft.optional? (Json.Draft.settleWithin? (maxDepth - 1))
      (some type.written) = (type.written.settleWithin? (maxDepth - 1)).map some := by
    cases type with
    | null => exact absurd rfl hnull
    | _ => rfl
  simp only [hoptional, Json.settleWithin?_written h, hdepth]

/-! ### What is read back -/

theorem settle_returnType_eq_self_iff {returnType : Option Json}
    (h : ∀ type, returnType = some type → type.WellFormed) :
    Json.Draft.optional? (Json.Draft.settleWithin? (maxDepth - 1)) (returnType.map Json.written) =
      some returnType ↔ ∀ type, returnType = some type →
        type ≠ .null ∧ type.depth + 1 ≤ maxDepth ∧ type.Legible := by
  cases returnType with
  | none => exact iff_of_true rfl (by rintro _ ⟨⟩)
  | some type =>
    simp only [Option.some.injEq, forall_eq', Option.map_some]
    by_cases hnull : type = .null
    · subst hnull
      exact iff_of_false (by rintro ⟨⟩) fun h => h.1 rfl
    · rw [settle_returnType (h type rfl) hnull, Option.map_eq_some_iff]
      simp only [Option.some.injEq, exists_eq_right, Option.ite_none_right_eq_some, ne_eq, hnull,
        not_false_eq_true, true_and, Json.Legible, h type rfl]

/-- A written request is read back exactly when nothing in it is nested too deep, its type is not null,
and its numbers are read back. -/
theorem read?_render_eq_self_iff {r : Request} (h : r.Holds Json.WellFormed)
    (hk : r.arguments.Ascending) : read? r.render = some r ↔
      (∀ f ∈ r.arguments, f.2.depth + 2 ≤ maxDepth) ∧
        (∀ type, r.returnType = some type → type ≠ .null ∧ type.depth + 1 ≤ maxDepth) ∧
        r.Holds Json.Legible := by
  obtain ⟨name, code, arguments, returnType⟩ := r
  obtain ⟨harguments, htype⟩ := h
  have hlegible : Json.rereadFields? arguments = some arguments ↔ ∀ f ∈ arguments, f.2.Legible := by
    rw [Json.rereadFields?_eq_self_iff_forall]
    exact forall₂_congr fun f hf => (and_iff_right (harguments f hf)).symm
  have hreturn := settle_returnType_eq_self_iff htype
  rw [read?_render, settle_arguments hk harguments]
  simp only [Option.bind_eq_bind, Option.bind_eq_some_iff, Option.ite_none_right_eq_some]
  constructor
  · rintro ⟨as, ⟨hdepth, has⟩, type, ht, hr⟩
    obtain ⟨-, -, rfl, rfl⟩ := Request.mk.inj (Option.some.inj hr)
    have hparts := hreturn.mp ht
    exact ⟨hdepth, fun t h => ⟨(hparts t h).1, (hparts t h).2.1⟩, hlegible.mp has,
      fun t h => (hparts t h).2.2⟩
  · rintro ⟨hdepth, hparts, has, ht⟩
    exact ⟨arguments, ⟨hdepth, hlegible.mpr has⟩, returnType,
      hreturn.mpr fun t h => ⟨(hparts t h).1, (hparts t h).2, ht t h⟩, rfl⟩

/-- A request that is written within the limit on nesting, for a type other than null and with numbers
that are read back, is read back. -/
theorem read?_render_of_depth_le {r : Request} (h : r.Holds Json.WellFormed)
    (hk : r.arguments.Ascending) (hdepth : (Json.obj r.fields).depth ≤ Json.maxDepth)
    (htype : r.returnType ≠ some .null)
    (hnumbers : ∀ n ∈ (Json.obj r.fields).numbers, n.reread? = some n) :
    read? r.render = some r := by
  have harguments : ("functionArguments", Json.obj r.arguments) ∈ r.fields :=
    List.mem_append_right _ List.mem_cons_self
  have hreturn : ∀ type, r.returnType = some type → ("returnType", type) ∈ r.fields := by
    intro type h
    rw [fields, h]
    exact List.mem_append_right _ (List.mem_cons_of_mem _ (List.mem_singleton.mpr rfl))
  have hreread : ∀ f ∈ r.fields, f.2.reread? = some f.2 := by
    have hfields := (Json.reread?_eq_self_iff (.obj r.fields)).mpr hnumbers
    rw [Json.reread?, Option.map_eq_some_iff] at hfields
    obtain ⟨fields, hfields, hsame⟩ := hfields
    obtain rfl := Json.obj.inj hsame
    exact Json.rereadFields?_eq_self_iff_forall.mp hfields
  rw [read?_render_eq_self_iff h hk]
  refine ⟨?_, ?_, ?_, ?_⟩
  · intro f hf
    have hinner := Json.depth_lt_depth_of_mem hf
    have houter := Json.depth_lt_depth_of_mem harguments
    dsimp only at houter
    omega
  · intro type h
    refine ⟨fun hnull => htype (hnull ▸ h), ?_⟩
    have houter := Json.depth_lt_depth_of_mem (hreturn type h)
    dsimp only at houter
    omega
  · have hread := hreread _ harguments
    rw [Json.reread?, Option.map_eq_some_iff] at hread
    obtain ⟨arguments, hread, hsame⟩ := hread
    obtain rfl := Json.obj.inj hsame
    exact fun f hf => ⟨h.1 f hf, Json.rereadFields?_eq_self_iff_forall.mp hread f hf⟩
  · exact fun type htype => ⟨h.2 type htype, hreread _ (hreturn type htype)⟩

/-- A request with an argument that is nested too deep is not read. -/
theorem read?_render_of_deep {r : Request} (h : r.Holds Json.WellFormed) (hk : r.arguments.Ascending)
    {f : String × Json} (hf : f ∈ r.arguments) (hdeep : maxDepth < f.2.depth + 2) :
    read? r.render = none := by
  rw [read?_render, settle_arguments hk h.1,
    if_neg fun hle => Nat.not_lt.mpr (hle f hf) hdeep]
  rfl

/-- A request for the type null is read as one for no type. -/
theorem read?_render_null {r : Request} (h : r.Holds Json.Legible) (hk : r.arguments.Ascending)
    (hdepth : ∀ f ∈ r.arguments, f.2.depth + 2 ≤ maxDepth) (hnull : r.returnType = some .null) :
    read? r.render = some { r with returnType := none } := by
  have hfields := Json.rereadFields?_eq_self_iff_forall.mpr fun f hf => (h.1 f hf).2
  rw [read?_render, settle_arguments hk fun f hf => (h.1 f hf).1, if_pos hdepth, hfields, hnull]
  rfl

end Request

namespace Call

open Json (maxDepth)

/-! ### Requests for calls -/

theorem arguments_sublist {fields : Json.Fields Json} :
    (arguments (.obj fields)).Sublist fields :=
  List.filter_sublist.trans List.filter_sublist

/-- The parts of the request for a well-formed call are well-formed. -/
theorem holds_request {call : Json} (h : call.WellFormed) (i : Implementation) :
    (request call i).Holds Json.WellFormed ∧ (request call i).arguments.Ascending := by
  have hP := Json.compositional_wellFormed
  refine ⟨⟨?_, ?_⟩, ?_⟩
  · cases h with
    | obj _ hfields => exact fun f hf => hfields f (arguments_sublist.subset hf)
    | _ => rintro _ ⟨⟩
  · intro type htype
    obtain ⟨function, hfunction, htype⟩ := Option.bind_eq_some_iff.mp htype
    exact hP.field? (hP.field? h (Option.filter_eq_some_iff.mp hfunction).1) htype
  · cases h with
    | obj hk _ => exact List.Pairwise.sublist arguments_sublist hk
    | _ => exact .nil

/-- The type to return is nested two levels deep in the call. -/
theorem depth_returnType {call : Json} {i : Implementation} {type : Json}
    (h : (request call i).returnType = some type) : type.depth + 2 ≤ call.depth := by
  obtain ⟨function, hfunction, htype⟩ := Option.bind_eq_some_iff.mp h
  have houter := Json.depth_lt_of_field? (Option.filter_eq_some_iff.mp hfunction).1
  have hinner := Json.depth_lt_of_field? htype
  omega

/-- The request for a call that is read is read back exactly when no argument is nested deeper than two
levels below the limit, the function does not declare null as its type, and all numbers are read back.
A deeper argument makes it unreadable, and with null it is read as one for no type. -/
theorem read?_render_request_iff {text : String} {call : Json} (h : Json.read? text = some call)
    (i : Implementation) :
    (Request.read? (request call i).render = some (request call i) ↔
      (∀ f ∈ arguments call, f.2.depth + 2 ≤ maxDepth) ∧
        (request call i).returnType ≠ some .null ∧ (request call i).Holds Json.Legible) ∧
      ((∃ f ∈ arguments call, maxDepth < f.2.depth + 2) →
        Request.read? (request call i).render = none) ∧
      ((∀ f ∈ arguments call, f.2.depth + 2 ≤ maxDepth) → (request call i).Holds Json.Legible →
        (request call i).returnType = some .null →
          Request.read? (request call i).render =
            some { request call i with returnType := none }) := by
  obtain ⟨hwell, hk⟩ := holds_request (Json.wellFormed_of_read? h) i
  refine ⟨?_, ?_, fun hdepth hlegible hnull => Request.read?_render_null hlegible hk hdepth hnull⟩
  · rw [Request.read?_render_eq_self_iff hwell hk]
    constructor
    · rintro ⟨hdepth, htype, hlegible⟩
      exact ⟨hdepth, fun hnull => (htype _ hnull).1 rfl, hlegible⟩
    · rintro ⟨hdepth, hnull, hlegible⟩
      refine ⟨hdepth, fun type htype => ⟨?_, ?_⟩, hlegible⟩
      · rintro rfl
        exact hnull htype
      · have hcall := Json.depth_le_of_read? h
        have htype := depth_returnType htype
        omega
  · rintro ⟨f, hf, hdeep⟩
    exact Request.read?_render_of_deep hwell hk hf hdeep

/-! ### Deep arguments -/

/-- Records in one another. -/
def nested : Nat → Json
  | 0 => .str "x"
  | n + 1 => .obj [("Z1K1", .str "Z2000"), ("a", nested n)]

theorem depth_nested (n : Nat) : (nested n).depth = n := by
  induction n with
  | zero => rfl
  | succ n ih => simp [nested, Json.depth, Json.depthFields, ih]

theorem legible_nested (n : Nat) : (nested n).Legible := by
  have hP := Json.compositional_legible
  induction n with
  | zero => exact hP.str "x"
  | succ n ih =>
    refine hP.obj (Json.Fields.ascending_of_keys ["Z1K1", "a"] rfl (by decide)) ?_
    simpa using ⟨hP.str "Z2000", ih⟩

/-- The code of a function that ignores its argument. -/
def ignoring : Implementation := ⟨"zscript", some "function Z1000(a) \x7b return \"ok\"; \x7d"⟩

/-- The object of that code. -/
def ignoringCode : Json :=
  .obj [("Z14K3", .obj [("Z16K1", .str "zscript"),
    ("Z16K2", .str "function Z1000(a) \x7b return \"ok\"; \x7d")])]

/-- The function with that code, which declares the given type. -/
def ignoringFunction (type : Json) : Json :=
  .obj [("Z1K1", .str "Z8"), ("Z8K2", type),
    ("Z8K4", Wire.listWith (.str "Z14") [ignoringCode]), ("Z8K5", .str "Z1000")]

/-- The call of that function. -/
def ignoringCall (argument type : Json) : Json :=
  .obj [("Z1000K1", argument), ("Z1K1", .str "Z7"), ("Z7K1", ignoringFunction type)]

theorem implementation_ignoringCall (argument type : Json) :
    implementation (ignoringCall argument type) = .ok ignoring := by
  have himplementations : implementations (ignoringFunction type) = [ignoringCode] := by
    show (Wire.listElements (Wire.listWith (.str "Z14") [ignoringCode])).toOption.getD [] = _
    rw [Wire.listElements_listWith]
    rfl
  have hfunction : function? (ignoringCall argument type) = some (ignoringFunction type) := rfl
  rw [implementation, implementation?, hfunction, Option.bind_eq_bind, Option.bind_some,
    himplementations]
  rfl

theorem read?_ignoringCall {argument type : Json} (hargument : argument.Legible)
    (htype : type.Legible) (hdepth : argument.depth + 1 ≤ maxDepth) (hflat : type.depth = 0) :
    Json.read? (ignoringCall argument type).render = some (ignoringCall argument type) := by
  have hP := Json.compositional_legible
  have hcode : ignoringCode.Legible := ⟨by decide +kernel, rfl⟩
  have hfunction : (ignoringFunction type).Legible := by
    refine hP.obj (Json.Fields.ascending_of_keys ["Z1K1", "Z8K2", "Z8K4", "Z8K5"] rfl (by decide)) ?_
    simpa using ⟨hP.str "Z8", htype, hP.listWith (hP.str "Z14") (by simpa using hcode), hP.str "Z1000"⟩
  have hlegible : (ignoringCall argument type).Legible := by
    refine hP.obj (Json.Fields.ascending_of_keys ["Z1000K1", "Z1K1", "Z7K1"] rfl (by decide)) ?_
    simpa using ⟨hargument, hP.str "Z7", hfunction⟩
  rw [Json.read?_render_eq_self_iff hlegible.1, ← Json.reread?_eq_self_iff]
  refine ⟨?_, hlegible.2⟩
  have hfunction : (ignoringFunction type).depth = 4 := by
    simp [ignoringFunction, ignoringCode, Wire.listWith, Wire.listCell, Wire.listEnd, Json.depth,
      Json.depthFields, hflat]
  have hcall : (ignoringCall argument type).depth = max argument.depth 4 + 1 := by
    simp [ignoringCall, Json.depth, Json.depthFields, hfunction]
  rw [maxDepth] at hdepth ⊢
  omega

/-- The request for a call with an argument that is nested as deep as can be is read back. -/
theorem read?_render_request_iff_nested :
    Json.read? (ignoringCall (nested 125) (.str "Z6")).render =
        some (ignoringCall (nested 125) (.str "Z6")) ∧
      Request.read? (request (ignoringCall (nested 125) (.str "Z6")) ignoring).render =
        some (request (ignoringCall (nested 125) (.str "Z6")) ignoring) := by
  have hP := Json.compositional_legible
  have hread := read?_ignoringCall (legible_nested 125) (hP.str "Z6")
    (by rw [depth_nested]; decide) rfl
  refine ⟨hread, (read?_render_request_iff hread ignoring).1.mpr ⟨?_, by rintro ⟨⟩, ?_, ?_⟩⟩
  · have harguments : arguments (ignoringCall (nested 125) (.str "Z6")) =
      [("Z1000K1", nested 125)] := rfl
    simp [harguments, depth_nested, maxDepth]
  · have harguments : arguments (ignoringCall (nested 125) (.str "Z6")) =
      [("Z1000K1", nested 125)] := rfl
    simpa [request, harguments] using legible_nested 125
  · rintro _ ⟨⟩
    exact hP.str "Z6"

/-- One level deeper it is not read, and null as the type to return gets lost. -/
theorem read?_render_request_lost :
    (Json.read? (ignoringCall (nested 126) (.str "Z6")).render =
        some (ignoringCall (nested 126) (.str "Z6")) ∧
      implementation (ignoringCall (nested 126) (.str "Z6")) = .ok ignoring ∧
      Request.read? (request (ignoringCall (nested 126) (.str "Z6")) ignoring).render = none) ∧
    Json.read? (ignoringCall (.str "x") .null).render = some (ignoringCall (.str "x") .null) ∧
      implementation (ignoringCall (.str "x") .null) = .ok ignoring ∧
      (request (ignoringCall (.str "x") .null) ignoring).returnType = some .null ∧
      ∃ read, Request.read? (request (ignoringCall (.str "x") .null) ignoring).render = some read ∧
        read.returnType = none := by
  have hP := Json.compositional_legible
  have hdeep := read?_ignoringCall (legible_nested 126) (hP.str "Z6")
    (by rw [depth_nested]; decide) rfl
  have hnull := read?_ignoringCall (hP.str "x") hP.null (by decide) rfl
  refine ⟨⟨hdeep, implementation_ignoringCall .., ?_⟩, hnull, implementation_ignoringCall .., rfl, ?_⟩
  · obtain ⟨hwell, hk⟩ := holds_request (Json.wellFormed_of_read? hdeep) ignoring
    refine Request.read?_render_of_deep hwell hk (f := ("Z1000K1", nested 126)) ?_ ?_
    · exact List.mem_singleton.mpr rfl
    · rw [depth_nested]
      decide
  · obtain ⟨-, hk⟩ := holds_request (Json.wellFormed_of_read? hnull) ignoring
    have harguments : arguments (ignoringCall (.str "x") .null) = [("Z1000K1", .str "x")] := rfl
    have hlegible : (request (ignoringCall (.str "x") .null) ignoring).Holds Json.Legible := by
      refine ⟨?_, ?_⟩
      · simpa [request, harguments] using hP.str "x"
      · rintro _ ⟨⟩
        exact hP.null
    have hdepth : ∀ f ∈ (request (ignoringCall (.str "x") .null) ignoring).arguments,
        f.2.depth + 2 ≤ maxDepth := by
      simp [request, harguments, Json.depth, maxDepth]
    exact ⟨_, Request.read?_render_null hlegible hk hdepth rfl, rfl⟩

end Call

end Polyglot
