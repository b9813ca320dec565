import Polyglot.Proofs.Codec.Traversal
import Polyglot.Proofs.Script.Kept
import Polyglot.Proofs.Value.Declared

/-!
# Scripts declare no types of their own

Every type that the result of a run declares comes from an argument or from a reply to a call
(`invoke_ensures`).  That all types that a value declares have a property is what scripts keep of their
data (`isKept_everyDeclared`), and values keep it when they enter a script (`everyDeclared_ofValue`) and
when they leave it (`everyDeclared_toValue`).
-/

namespace Polyglot.Script

/-! ### Data -/

/-- Whether each type that a value of a script declares in any of its parts has a property. -/
inductive Datum.EveryDeclared (P : Json → Prop) : Datum → Prop
  | null : EveryDeclared P .null
  | bool (b : Bool) : EveryDeclared P (.bool b)
  | int (n : Int) : EveryDeclared P (.int n)
  | text (s : String) : EveryDeclared P (.text s)
  | reference (id : String) : EveryDeclared P (.reference id)
  | list {items : List Datum} (h : ∀ x ∈ items, EveryDeclared P x) : EveryDeclared P (.list items)
  | pair {first second : Datum} {declared : Option Json} (h1 : EveryDeclared P first)
    (h2 : EveryDeclared P second) (h : ∀ type, declared = some type → P type) :
    EveryDeclared P (.pair first second declared)
  | map {entries : List (Datum × Datum)}
    (hk : ∀ e ∈ entries, EveryDeclared P e.1) (hv : ∀ e ∈ entries, EveryDeclared P e.2) :
    EveryDeclared P (.map entries)
  | record {declared : Option Json} {fields : List (String × Datum)}
    (h : ∀ type, declared = some type → P type) (hf : ∀ f ∈ fields, EveryDeclared P f.2) :
    EveryDeclared P (.record declared fields)
  | closure (c : Closure) : EveryDeclared P (.closure c)
  | builtin (b : Builtin) : EveryDeclared P (.builtin b)

namespace Datum

variable {P : Json → Prop}

theorem EveryDeclared.entries {entries : List (Datum × Datum)} (h : EveryDeclared P (.map entries)) :
    ∀ e ∈ entries, e.1.EveryDeclared P ∧ e.2.EveryDeclared P := by
  cases h with
  | map hk hv => exact fun e he => ⟨hk e he, hv e he⟩

/-- Scripts take data apart and put them together without declaring types. -/
theorem isKept_everyDeclared : IsKept (EveryDeclared P) where
  null := .null
  bool := .bool
  int := .int
  text := .text
  reference := .reference
  closure := .closure
  builtin := .builtin
  list := .list
  items h := by cases h with | list h => exact h
  pair h1 h2 := .pair h1 h2 (by rintro _ ⟨⟩)
  slots h := by cases h with | pair h1 h2 _ => exact ⟨h1, h2⟩
  empty := .map (by rintro _ ⟨⟩) (by rintro _ ⟨⟩)
  insert h hk hv := by
    have hinsert := forall_insertEntry h.entries hk hv
    exact .map (fun e he => (hinsert e he).1) fun e he => (hinsert e he).2
  entries := EveryDeclared.entries
  fields h := by cases h with | record _ hf => exact hf

/-! ### Native forms -/

mutual

theorem everyDeclared_ofValue {v : Value} (h : v.EveryDeclared P) : (ofValue v).EveryDeclared P := by
  cases v with
  | text s => exact .text s
  | reference id => exact .reference id
  | flag b => exact .bool b
  | unit => exact .null
  | list items =>
    cases h with
    | list h => exact .list (everyDeclared_ofItems h)
  | pair a b declared =>
    cases h with
    | pair h1 h2 h => exact .pair (everyDeclared_ofValue h1) (everyDeclared_ofValue h2) h
  | map entries =>
    cases h with
    | map hk hv =>
      have he := everyDeclared_ofEntries hk hv
      exact .map (fun e hmem => (he e hmem).1) fun e hmem => (he e hmem).2
  | record declared fields =>
    cases h with
    | record h hf => exact .record h (everyDeclared_ofFields hf)

theorem everyDeclared_ofItems {items : List Value} (h : ∀ v ∈ items, v.EveryDeclared P) :
    ∀ x ∈ ofItems items, x.EveryDeclared P := by
  cases items with
  | nil => rintro _ ⟨⟩
  | cons v rest =>
    obtain ⟨hv, hrest⟩ := List.forall_mem_cons.mp h
    exact List.forall_mem_cons.mpr ⟨everyDeclared_ofValue hv, everyDeclared_ofItems hrest⟩

theorem everyDeclared_ofEntries {entries : List (Value × Value)}
    (hk : ∀ e ∈ entries, e.1.EveryDeclared P) (hv : ∀ e ∈ entries, e.2.EveryDeclared P) :
    ∀ e ∈ ofEntries entries, e.1.EveryDeclared P ∧ e.2.EveryDeclared P := by
  cases entries with
  | nil => rintro _ ⟨⟩
  | cons e rest =>
    obtain ⟨k, v⟩ := e
    obtain ⟨hk, hks⟩ := List.forall_mem_cons.mp hk
    obtain ⟨hv, hvs⟩ := List.forall_mem_cons.mp hv
    exact List.forall_mem_cons.mpr
      ⟨⟨everyDeclared_ofValue hk, everyDeclared_ofValue hv⟩, everyDeclared_ofEntries hks hvs⟩

theorem everyDeclared_ofFields {fields : List (String × Value)}
    (h : ∀ f ∈ fields, f.2.EveryDeclared P) : ∀ f ∈ ofFields fields, f.2.EveryDeclared P := by
  cases fields with
  | nil => rintro _ ⟨⟩
  | cons f rest =>
    obtain ⟨k, v⟩ := f
    obtain ⟨hv, hrest⟩ := List.forall_mem_cons.mp h
    exact List.forall_mem_cons.mpr ⟨everyDeclared_ofValue hv, everyDeclared_ofFields hrest⟩

end

mutual

theorem everyDeclared_toValue {d : Datum} (hd : d.EveryDeclared P) {v : Value}
    (h : d.toValue = .ok v) : v.EveryDeclared P := by
  cases d with
  | null => exact Except.ok.inj h ▸ .unit
  | bool b => exact Except.ok.inj h ▸ .flag b
  | text s => exact Except.ok.inj h ▸ .text s
  | reference id => exact Except.ok.inj h ▸ .reference id
  | list items =>
    cases hd with
    | list hd =>
      obtain ⟨vs, hvs, hv⟩ := Traversal.bind_eq_ok_iff.mp h
      exact Except.ok.inj hv ▸ .list (everyDeclared_toItems hd hvs)
  | pair a b declared =>
    cases hd with
    | pair h1 h2 ht =>
      obtain ⟨x, hx, h⟩ := Traversal.bind_eq_ok_iff.mp h
      obtain ⟨y, hy, hv⟩ := Traversal.bind_eq_ok_iff.mp h
      exact Except.ok.inj hv ▸ .pair (everyDeclared_toValue h1 hx) (everyDeclared_toValue h2 hy) ht
  | map entries =>
    cases hd with
    | map hk hv =>
      obtain ⟨es, hes, heq⟩ := Traversal.bind_eq_ok_iff.mp h
      -- Keys that become equal are merged, which makes no new ones.
      have hdeclared := Value.Entries.EveryDeclared.ofList (everyDeclared_toEntries hk hv hes)
      exact Except.ok.inj heq ▸
        .map (fun e hmem => (hdeclared e hmem).1) fun e hmem => (hdeclared e hmem).2
  | record declared fields =>
    cases hd with
    | record ht hf =>
      obtain ⟨fs, hfs, hv⟩ := Traversal.bind_eq_ok_iff.mp h
      exact Except.ok.inj hv ▸ .record ht (everyDeclared_toFields hf hfs)
  | int n | closure c | builtin b => cases h

theorem everyDeclared_toItems {items : List Datum} (hd : ∀ x ∈ items, x.EveryDeclared P)
    {vs : List Value} (h : toItems items = .ok vs) : ∀ v ∈ vs, v.EveryDeclared P := by
  cases items with
  | nil =>
    obtain rfl := Except.ok.inj h
    rintro _ ⟨⟩
  | cons x rest =>
    obtain ⟨hx, hrest⟩ := List.forall_mem_cons.mp hd
    obtain ⟨w, hw, h⟩ := Traversal.bind_eq_ok_iff.mp h
    obtain ⟨ws, hws, hv⟩ := Traversal.bind_eq_ok_iff.mp h
    exact Except.ok.inj hv ▸
      List.forall_mem_cons.mpr ⟨everyDeclared_toValue hx hw, everyDeclared_toItems hrest hws⟩

theorem everyDeclared_toEntries {entries : List (Datum × Datum)}
    (hk : ∀ e ∈ entries, e.1.EveryDeclared P) (hv : ∀ e ∈ entries, e.2.EveryDeclared P)
    {vs : List (Value × Value)} (h : toEntries entries = .ok vs) :
    Value.Entries.EveryDeclared P vs := by
  cases entries with
  | nil =>
    obtain rfl := Except.ok.inj h
    rintro _ ⟨⟩
  | cons e rest =>
    obtain ⟨k, x⟩ := e
    obtain ⟨hk, hks⟩ := List.forall_mem_cons.mp hk
    obtain ⟨hv, hvs⟩ := List.forall_mem_cons.mp hv
    obtain ⟨l, hl, h⟩ := Traversal.bind_eq_ok_iff.mp h
    obtain ⟨y, hy, h⟩ := Traversal.bind_eq_ok_iff.mp h
    obtain ⟨ws, hws, heq⟩ := Traversal.bind_eq_ok_iff.mp h
    exact Except.ok.inj heq ▸ List.forall_mem_cons.mpr
      ⟨⟨everyDeclared_toValue hk hl, everyDeclared_toValue hv hy⟩,
        everyDeclared_toEntries hks hvs hws⟩

theorem everyDeclared_toFields {fields : List (String × Datum)}
    (hd : ∀ f ∈ fields, f.2.EveryDeclared P) {vs : List (String × Value)}
    (h : toFields fields = .ok vs) : ∀ f ∈ vs, f.2.EveryDeclared P := by
  cases fields with
  | nil =>
    obtain rfl := Except.ok.inj h
    rintro _ ⟨⟩
  | cons f rest =>
    obtain ⟨k, x⟩ := f
    obtain ⟨hx, hrest⟩ := List.forall_mem_cons.mp hd
    obtain ⟨w, hw, h⟩ := Traversal.bind_eq_ok_iff.mp h
    obtain ⟨ws, hws, hv⟩ := Traversal.bind_eq_ok_iff.mp h
    exact Except.ok.inj hv ▸
      List.forall_mem_cons.mpr ⟨everyDeclared_toValue hx hw, everyDeclared_toFields hrest hws⟩

end

end Datum

/-! ### Whole runs -/

/-- What a run yields declares only types that the arguments or the replies to its calls declare. -/
theorem invoke_ensures {P : Json → Prop} {Reply : Except Fault Value → Prop}
    (hreply : ∀ v, Reply (.ok v) → v.EveryDeclared P) (program : Program) (name : String)
    {arguments : List Value} (ha : ∀ v ∈ arguments, v.EveryDeclared P) :
    (invoke program name arguments).Ensures Reply fun result =>
      ∀ v, result = .ok v → v.EveryDeclared P := by
  have hreplies : ∀ v, Reply (.ok v) → (Datum.ofValue v).EveryDeclared P :=
    fun v hv => Datum.everyDeclared_ofValue (hreply v hv)
  have hrun := runProgram_keeps Datum.isKept_everyDeclared hreplies program name
    (Datum.everyDeclared_ofItems ha) Store.initial Store.every_initial
  refine Talk.Ensures.bind hrun ?_
  rintro ⟨result, store⟩ ⟨-, hr⟩
  cases result with
  | error failure => rintro _ ⟨⟩
  | ok d =>
    have hd := hr d rfl
    dsimp only
    cases hvalue : d.toValue with
    | error cause => rintro _ ⟨⟩
    | ok v => exact fun _ hv => Except.ok.inj hv ▸ Datum.everyDeclared_toValue hd hvalue

end Polyglot.Script
