import Polyglot.Proofs.Codec.Traversal
import Polyglot.Proofs.Script.Kept
import Polyglot.Proofs.Value.FiniteMap

/-!
# Native forms of data

Two values are equal when their forms in scripts are (`same_ofValue`).  A native value comes back from
its form in scripts as it was (`toValue_ofValue`), and what has a native form is the form of it
(`ofValue_of_toValue`), as far as the keys of all maps differ (`WellKeyed`).  So insertions into maps
agree (`insertEntry_ofValue`), and no entry is lost or merged on the way into a script or out of it.

All data in a run are well-keyed if the values that come from outside are (`isKept_wellKeyed`), since
scripts make maps by insertions.  The main statement is `native_forms_agree`.
-/

namespace Polyglot.Script

namespace Datum

/-! ### Equality -/

mutual

theorem same_ofValue (v w : Value) : (ofValue v).same (ofValue w) = v.same w := by
  cases v <;> cases w <;> simp only [ofValue, same, Value.same]
  · exact sameItems_ofItems _ _
  · rw [same_ofValue, same_ofValue]
  · exact sameEntries_ofEntries _ _
  · rw [sameFields_ofFields]
termination_by structural v

theorem sameItems_ofItems (vs ws : List Value) :
    sameItems (ofItems vs) (ofItems ws) = Value.sameItems vs ws := by
  cases vs <;> cases ws <;> simp only [ofItems, sameItems, Value.sameItems]
  rw [same_ofValue, sameItems_ofItems]
termination_by structural vs

theorem sameEntries_ofEntries (es fs : List (Value × Value)) :
    sameEntries (ofEntries es) (ofEntries fs) = Value.sameEntries es fs := by
  rcases es with _ | ⟨⟨k, x⟩, es⟩ <;> rcases fs with _ | ⟨⟨l, y⟩, fs⟩ <;>
    simp only [ofEntries, sameEntries, Value.sameEntries]
  rw [same_ofValue, same_ofValue, sameEntries_ofEntries]
termination_by structural es

theorem sameFields_ofFields (fs gs : List (String × Value)) :
    sameFields (ofFields fs) (ofFields gs) = Value.sameFields fs gs := by
  rcases fs with _ | ⟨⟨k, x⟩, fs⟩ <;> rcases gs with _ | ⟨⟨l, y⟩, gs⟩ <;>
    simp only [ofFields, sameFields, Value.sameFields]
  rw [same_ofValue, sameFields_ofFields]
termination_by structural fs

end

/-! ### Insertion -/

theorem ofEntries_eq_map (es : List (Value × Value)) :
    ofEntries es = es.map fun e => (ofValue e.1, ofValue e.2) := by
  induction es with
  | nil => rw [ofEntries, List.map_nil]
  | cons e es ih => rw [ofEntries, List.map_cons, ih]

/-- Inserting the forms of a key and a value into the form of a map gives the form of the map with both
inserted. -/
theorem insertEntry_ofValue (key value : Value) (es : Value.Entries) :
    insertEntry (ofValue key) (ofValue value) (ofEntries es) = ofEntries (es.insert key value) := by
  induction es with
  | nil => simp only [ofEntries, insertEntry, Value.Entries.insert]
  | cons e rest ih =>
    obtain ⟨k, v⟩ := e
    rw [ofEntries, insertEntry, Value.Entries.insert, same_ofValue]
    split
    · rw [ofEntries]
    · rw [ih, ofEntries]

/-! ### Maps inside of data -/

/-- Whether the keys of each map in any part of a value of a script differ. -/
inductive WellKeyed : Datum → Prop
  | null : WellKeyed .null
  | bool (b : Bool) : WellKeyed (.bool b)
  | int (n : Int) : WellKeyed (.int n)
  | text (s : String) : WellKeyed (.text s)
  | reference (id : String) : WellKeyed (.reference id)
  | list {items : List Datum} (h : ∀ x ∈ items, WellKeyed x) : WellKeyed (.list items)
  | pair {first second : Datum} (declared : Option Json) (h1 : WellKeyed first)
    (h2 : WellKeyed second) : WellKeyed (.pair first second declared)
  | map {entries : List (Datum × Datum)} (hdiffer : Association.Differ same entries)
    (hk : ∀ e ∈ entries, WellKeyed e.1) (hv : ∀ e ∈ entries, WellKeyed e.2) :
    WellKeyed (.map entries)
  | record (declared : Option Json) {fields : List (String × Datum)}
    (h : ∀ f ∈ fields, WellKeyed f.2) : WellKeyed (.record declared fields)
  | closure (c : Closure) : WellKeyed (.closure c)
  | builtin (b : Builtin) : WellKeyed (.builtin b)

theorem WellKeyed.entries {entries : List (Datum × Datum)} (h : WellKeyed (.map entries)) :
    ∀ e ∈ entries, e.1.WellKeyed ∧ e.2.WellKeyed := by
  cases h with
  | map _ hk hv => exact fun e he => ⟨hk e he, hv e he⟩

/-- Scripts make maps by insertions, so the keys of maps differ. -/
theorem isKept_wellKeyed : IsKept WellKeyed where
  null := .null
  bool := .bool
  int := .int
  text := .text
  reference := .reference
  closure := .closure
  builtin := .builtin
  list := .list
  items h := by cases h with | list h => exact h
  pair h1 h2 := .pair none h1 h2
  slots h := by cases h with | pair _ h1 h2 => exact ⟨h1, h2⟩
  empty := .map List.Pairwise.nil (by rintro _ ⟨⟩) (by rintro _ ⟨⟩)
  insert {entries key value} h hk hv := by
    have hinsert := forall_insertEntry h.entries hk hv
    refine .map ?_ (fun e he => (hinsert e he).1) fun e he => (hinsert e he).2
    cases h with
    | map hdiffer _ _ =>
      rw [insertEntry_eq]
      exact Association.differ_insert hdiffer key value
  entries := WellKeyed.entries
  fields h := by cases h with | record _ h => exact h

/-- The keys of a map differ exactly when those of its form do. -/
theorem differ_ofEntries_iff (es : Value.Entries) :
    Association.Differ same (ofEntries es) ↔ es.KeysDiffer := by
  rw [ofEntries_eq_map, Association.Differ, List.pairwise_map]
  simp only [same_ofValue]
  rfl

mutual

/-- The form of a well-keyed value is well-keyed. -/
theorem wellKeyed_ofValue {v : Value} (h : v.WellKeyed) : (ofValue v).WellKeyed := by
  cases v with
  | text s => exact .text s
  | reference id => exact .reference id
  | flag b => exact .bool b
  | unit => exact .null
  | list items =>
    cases h with
    | list h => exact .list (wellKeyed_ofItems h)
  | pair a b declared =>
    cases h with
    | pair _ h1 h2 => exact .pair declared (wellKeyed_ofValue h1) (wellKeyed_ofValue h2)
  | map entries =>
    cases h with
    | map hdiffer hk hv =>
      have he := wellKeyed_ofEntries hk hv
      exact .map ((differ_ofEntries_iff entries).mpr hdiffer) (fun e hmem => (he e hmem).1)
        fun e hmem => (he e hmem).2
  | record declared fields =>
    cases h with
    | record _ h => exact .record declared (wellKeyed_ofFields h)

theorem wellKeyed_ofItems {items : List Value} (h : ∀ v ∈ items, v.WellKeyed) :
    ∀ x ∈ ofItems items, x.WellKeyed := by
  cases items with
  | nil => rintro _ ⟨⟩
  | cons v rest =>
    obtain ⟨hv, hrest⟩ := List.forall_mem_cons.mp h
    exact List.forall_mem_cons.mpr ⟨wellKeyed_ofValue hv, wellKeyed_ofItems hrest⟩

theorem wellKeyed_ofEntries {entries : List (Value × Value)} (hk : ∀ e ∈ entries, e.1.WellKeyed)
    (hv : ∀ e ∈ entries, e.2.WellKeyed) :
    ∀ e ∈ ofEntries entries, e.1.WellKeyed ∧ e.2.WellKeyed := by
  cases entries with
  | nil => rintro _ ⟨⟩
  | cons e rest =>
    obtain ⟨k, v⟩ := e
    obtain ⟨hk, hks⟩ := List.forall_mem_cons.mp hk
    obtain ⟨hv, hvs⟩ := List.forall_mem_cons.mp hv
    exact List.forall_mem_cons.mpr
      ⟨⟨wellKeyed_ofValue hk, wellKeyed_ofValue hv⟩, wellKeyed_ofEntries hks hvs⟩

theorem wellKeyed_ofFields {fields : List (String × Value)} (h : ∀ f ∈ fields, f.2.WellKeyed) :
    ∀ f ∈ ofFields fields, f.2.WellKeyed := by
  cases fields with
  | nil => rintro _ ⟨⟩
  | cons f rest =>
    obtain ⟨k, v⟩ := f
    obtain ⟨hv, hrest⟩ := List.forall_mem_cons.mp h
    exact List.forall_mem_cons.mpr ⟨wellKeyed_ofValue hv, wellKeyed_ofFields hrest⟩

end

/-! ### Out of a script and back -/

mutual

/-- A native value comes back from its form in scripts as it was. -/
theorem toValue_ofValue {v : Value} (h : v.WellKeyed) : (ofValue v).toValue = .ok v := by
  cases v with
  | text s | reference id | flag b | unit => rw [ofValue, toValue]
  | list items =>
    cases h with
    | list h =>
      rw [ofValue, toValue, toItems_ofItems h]
      rfl
  | pair a b declared =>
    cases h with
    | pair _ h1 h2 =>
      rw [ofValue, toValue, toValue_ofValue h1, toValue_ofValue h2]
      rfl
  | map entries =>
    cases h with
    | map hdiffer hk hv =>
      rw [ofValue, toValue, toEntries_ofEntries hk hv]
      show Except.ok (Value.map (Value.Entries.ofList entries)) = _
      rw [Value.Entries.ofList_of_keysDiffer hdiffer]
  | record declared fields =>
    cases h with
    | record _ h =>
      rw [ofValue, toValue, toFields_ofFields h]
      rfl

theorem toItems_ofItems {items : List Value} (h : ∀ v ∈ items, v.WellKeyed) :
    toItems (ofItems items) = .ok items := by
  cases items with
  | nil => rw [ofItems, toItems]
  | cons v rest =>
    obtain ⟨hv, hrest⟩ := List.forall_mem_cons.mp h
    rw [ofItems, toItems, toValue_ofValue hv, toItems_ofItems hrest]
    rfl

theorem toEntries_ofEntries {entries : List (Value × Value)} (hk : ∀ e ∈ entries, e.1.WellKeyed)
    (hv : ∀ e ∈ entries, e.2.WellKeyed) : toEntries (ofEntries entries) = .ok entries := by
  cases entries with
  | nil => rw [ofEntries, toEntries]
  | cons e rest =>
    obtain ⟨k, v⟩ := e
    obtain ⟨hk, hks⟩ := List.forall_mem_cons.mp hk
    obtain ⟨hv, hvs⟩ := List.forall_mem_cons.mp hv
    rw [ofEntries, toEntries, toValue_ofValue hk, toValue_ofValue hv, toEntries_ofEntries hks hvs]
    rfl

theorem toFields_ofFields {fields : List (String × Value)} (h : ∀ f ∈ fields, f.2.WellKeyed) :
    toFields (ofFields fields) = .ok fields := by
  cases fields with
  | nil => rw [ofFields, toFields]
  | cons f rest =>
    obtain ⟨k, v⟩ := f
    obtain ⟨hv, hrest⟩ := List.forall_mem_cons.mp h
    rw [ofFields, toFields, toValue_ofValue hv, toFields_ofFields hrest]
    rfl

end

mutual

/-- What has a native form is the form of it, and the native form is well-keyed. -/
theorem ofValue_of_toValue {d : Datum} (h : d.WellKeyed) {v : Value} (hv : d.toValue = .ok v) :
    ofValue v = d ∧ v.WellKeyed := by
  cases d with
  | null | bool _ | text _ | reference _ =>
    obtain rfl := Except.ok.inj hv
    exact ⟨by rw [ofValue], by constructor⟩
  | list items =>
    cases h with
    | list h =>
      obtain ⟨vs, hvs, hv⟩ := Traversal.bind_eq_ok_iff.mp hv
      obtain ⟨heq, hkeyed⟩ := ofItems_of_toItems h hvs
      obtain rfl := Except.ok.inj hv
      exact ⟨by rw [ofValue, heq], .list hkeyed⟩
  | pair a b declared =>
    cases h with
    | pair _ h1 h2 =>
      obtain ⟨x, hx, hv⟩ := Traversal.bind_eq_ok_iff.mp hv
      obtain ⟨y, hy, hv⟩ := Traversal.bind_eq_ok_iff.mp hv
      obtain ⟨heqx, hkeyedx⟩ := ofValue_of_toValue h1 hx
      obtain ⟨heqy, hkeyedy⟩ := ofValue_of_toValue h2 hy
      obtain rfl := Except.ok.inj hv
      exact ⟨by rw [ofValue, heqx, heqy], .pair declared hkeyedx hkeyedy⟩
  | map entries =>
    cases h with
    | map hdiffer hk hv' =>
      obtain ⟨es, hes, hv⟩ := Traversal.bind_eq_ok_iff.mp hv
      obtain ⟨heq, hkeyed⟩ := ofEntries_of_toEntries hk hv' hes
      -- The native keys differ as the keys do, so none of the entries are merged.
      have hes' : Value.Entries.KeysDiffer es := (differ_ofEntries_iff es).mp (heq ▸ hdiffer)
      obtain rfl := Except.ok.inj hv
      rw [Value.Entries.ofList_of_keysDiffer hes']
      exact ⟨by rw [ofValue, heq],
        .map hes' (fun e he => (hkeyed e he).1) fun e he => (hkeyed e he).2⟩
  | record declared fields =>
    cases h with
    | record _ h =>
      obtain ⟨fs, hfs, hv⟩ := Traversal.bind_eq_ok_iff.mp hv
      obtain ⟨heq, hkeyed⟩ := ofFields_of_toFields h hfs
      obtain rfl := Except.ok.inj hv
      exact ⟨by rw [ofValue, heq], .record declared hkeyed⟩
  | int n | closure c | builtin b => cases hv

theorem ofItems_of_toItems {items : List Datum} (h : ∀ x ∈ items, x.WellKeyed) {vs : List Value}
    (hvs : toItems items = .ok vs) : ofItems vs = items ∧ ∀ v ∈ vs, v.WellKeyed := by
  cases items with
  | nil =>
    obtain rfl := Except.ok.inj hvs
    exact ⟨by rw [ofItems], by rintro _ ⟨⟩⟩
  | cons x rest =>
    obtain ⟨hx, hrest⟩ := List.forall_mem_cons.mp h
    obtain ⟨w, hw, hvs⟩ := Traversal.bind_eq_ok_iff.mp hvs
    obtain ⟨ws, hws, hvs⟩ := Traversal.bind_eq_ok_iff.mp hvs
    obtain ⟨heq, hkeyed⟩ := ofValue_of_toValue hx hw
    obtain ⟨heqs, hkeyeds⟩ := ofItems_of_toItems hrest hws
    obtain rfl := Except.ok.inj hvs
    exact ⟨by rw [ofItems, heq, heqs], List.forall_mem_cons.mpr ⟨hkeyed, hkeyeds⟩⟩

theorem ofEntries_of_toEntries {entries : List (Datum × Datum)}
    (hk : ∀ e ∈ entries, e.1.WellKeyed) (hv : ∀ e ∈ entries, e.2.WellKeyed)
    {es : List (Value × Value)} (hes : toEntries entries = .ok es) :
    ofEntries es = entries ∧ ∀ e ∈ es, e.1.WellKeyed ∧ e.2.WellKeyed := by
  cases entries with
  | nil =>
    obtain rfl := Except.ok.inj hes
    exact ⟨by rw [ofEntries], by rintro _ ⟨⟩⟩
  | cons e rest =>
    obtain ⟨k, x⟩ := e
    obtain ⟨hk, hks⟩ := List.forall_mem_cons.mp hk
    obtain ⟨hv, hvs⟩ := List.forall_mem_cons.mp hv
    obtain ⟨l, hl, hes⟩ := Traversal.bind_eq_ok_iff.mp hes
    obtain ⟨y, hy, hes⟩ := Traversal.bind_eq_ok_iff.mp hes
    obtain ⟨fs, hfs, hes⟩ := Traversal.bind_eq_ok_iff.mp hes
    obtain ⟨heql, hkeyedl⟩ := ofValue_of_toValue hk hl
    obtain ⟨heqy, hkeyedy⟩ := ofValue_of_toValue hv hy
    obtain ⟨heqs, hkeyeds⟩ := ofEntries_of_toEntries hks hvs hfs
    obtain rfl := Except.ok.inj hes
    exact ⟨by rw [ofEntries, heql, heqy, heqs],
      List.forall_mem_cons.mpr ⟨⟨hkeyedl, hkeyedy⟩, hkeyeds⟩⟩

theorem ofFields_of_toFields {fields : List (String × Datum)} (h : ∀ f ∈ fields, f.2.WellKeyed)
    {vs : List (String × Value)} (hvs : toFields fields = .ok vs) :
    ofFields vs = fields ∧ ∀ f ∈ vs, f.2.WellKeyed := by
  cases fields with
  | nil =>
    obtain rfl := Except.ok.inj hvs
    exact ⟨by rw [ofFields], by rintro _ ⟨⟩⟩
  | cons f rest =>
    obtain ⟨k, x⟩ := f
    obtain ⟨hx, hrest⟩ := List.forall_mem_cons.mp h
    obtain ⟨w, hw, hvs⟩ := Traversal.bind_eq_ok_iff.mp hvs
    obtain ⟨ws, hws, hvs⟩ := Traversal.bind_eq_ok_iff.mp hvs
    obtain ⟨heq, hkeyed⟩ := ofValue_of_toValue hx hw
    obtain ⟨heqs, hkeyeds⟩ := ofFields_of_toFields hrest hws
    obtain rfl := Except.ok.inj hvs
    exact ⟨by rw [ofFields, heq, heqs], List.forall_mem_cons.mpr ⟨hkeyed, hkeyeds⟩⟩

end

/-! ### Maps of pairs -/

/-- The map of pairs of well-keyed data is the form of the native map with their native forms. -/
theorem mapOfPairs_of_toEntries {slots : List (Datum × Datum × Option Json)}
    (h : ∀ s ∈ slots, s.1.WellKeyed ∧ s.2.1.WellKeyed) {es : List (Value × Value)}
    (hes : toEntries (slots.map fun s => (s.1, s.2.1)) = .ok es) (acc : Value.Entries) :
    mapOfPairs (ofEntries acc) (slots.map fun s => pair s.1 s.2.1 s.2.2) =
      .ok (map (ofEntries (es.foldl (fun acc e => Value.Entries.insert e.1 e.2 acc) acc))) := by
  induction slots generalizing es acc with
  | nil =>
    obtain rfl := Except.ok.inj hes
    rfl
  | cons s rest ih =>
    obtain ⟨⟨hk, hv⟩, hrest⟩ := List.forall_mem_cons.mp h
    obtain ⟨key, hkey, hes⟩ := Traversal.bind_eq_ok_iff.mp hes
    obtain ⟨value, hvalue, hes⟩ := Traversal.bind_eq_ok_iff.mp hes
    obtain ⟨fs, hfs, hes⟩ := Traversal.bind_eq_ok_iff.mp hes
    obtain rfl := Except.ok.inj hes
    -- Both slots are the forms of native values, which go to the same place.
    rw [List.map_cons, mapOfPairs, ← (ofValue_of_toValue hk hkey).1,
      ← (ofValue_of_toValue hv hvalue).1, insertEntry_ofValue, ih hrest hfs, List.foldl_cons]

/-- The native form of the map that `toMap` makes has the native forms of the slots inserted in
order. -/
theorem toValue_toMap {slots : List (Datum × Datum × Option Json)}
    (h : ∀ s ∈ slots, s.1.WellKeyed ∧ s.2.1.WellKeyed) {es : List (Value × Value)}
    (hes : toEntries (slots.map fun s => (s.1, s.2.1)) = .ok es) :
    ∃ m, apply .toMap [list (slots.map fun s => pair s.1 s.2.1 s.2.2)] = .ok m ∧
      m.toValue = .ok (.map (Value.Entries.ofList es)) := by
  refine ⟨ofValue (.map (Value.Entries.ofList es)), ?_, ?_⟩
  · rw [ofValue]
    exact mapOfPairs_of_toEntries h hes []
  · have hslots : ∀ e ∈ slots.map fun s => (s.1, s.2.1), e.1.WellKeyed ∧ e.2.WellKeyed := by
      intro e he
      obtain ⟨s, hs, rfl⟩ := List.mem_map.mp he
      exact h s hs
    have hkeyed := (ofEntries_of_toEntries (fun e he => (hslots e he).1)
      (fun e he => (hslots e he).2) hes).2
    have hlist := Value.Entries.forall_ofList hkeyed
    exact toValue_ofValue (.map (Value.Entries.keysDiffer_ofList es)
      (fun e he => (hlist e he).1) fun e he => (hlist e he).2)

/-- Each entry of a well-keyed map that has a native form is one entry of that, in the same place. -/
theorem forall₂_of_toValue_map {entries : List (Datum × Datum)} (h : WellKeyed (.map entries))
    {v : Value} (hv : (map entries).toValue = .ok v) : ∃ es : Value.Entries, v = .map es ∧
      List.Forall₂ (fun e f => e.1.toValue = .ok f.1 ∧ e.2.toValue = .ok f.2) entries es := by
  obtain ⟨heq, hkeyed⟩ := ofValue_of_toValue h hv
  cases hkeyed with
  | @map es _ hkeys hvalues =>
    rw [ofValue] at heq
    obtain rfl := map.inj heq
    refine ⟨es, rfl, ?_⟩
    rw [ofEntries_eq_map, List.forall₂_map_left_iff, List.forall₂_same]
    exact fun e he => ⟨toValue_ofValue (hkeys e he), toValue_ofValue (hvalues e he)⟩
  | _ => simp only [ofValue, reduceCtorEq] at heq

end Datum

/-! ### Native values and data in runs -/

/-- Whether a reply is a fault or a value in which the keys of all maps differ. -/
def WellKeyedReply (reply : Except Fault Value) : Prop := ∀ v, reply = .ok v → v.WellKeyed

/-- Native values and values of scripts agree, where the keys of all maps differ.  A native value comes
back from a script as it was.  Values of scripts are equal when their native forms are.  The map of a
list of pairs has the native forms of the slots inserted in order.  Each entry of a map is one entry on
the way into a script and on the way out.  And the keys of all maps differ in every value that an
expression has in a run and in all that is bound, as far as they do in the arguments and replies. -/
theorem native_forms_agree :
    (∀ v : Value, v.WellKeyed → (Datum.ofValue v).WellKeyed ∧ (Datum.ofValue v).toValue = .ok v) ∧
    (∀ a b : Datum, a.WellKeyed → b.WellKeyed → ∀ v w, a.toValue = .ok v → b.toValue = .ok w →
      (a.same b = true ↔ v.same w = true)) ∧
    (∀ slots : List (Datum × Datum × Option Json),
      (∀ s ∈ slots, s.1.WellKeyed ∧ s.2.1.WellKeyed) → ∀ es : List (Value × Value),
        Datum.toEntries (slots.map fun s => (s.1, s.2.1)) = .ok es →
        ∃ m, Datum.apply .toMap [.list (slots.map fun s => .pair s.1 s.2.1 s.2.2)] = .ok m ∧
          m.toValue =
            .ok (.map (es.foldl (fun map e => Value.Entries.insert e.1 e.2 map) []))) ∧
    (∀ es : Value.Entries, Datum.ofValue (.map es) =
      .map (es.map fun e => (Datum.ofValue e.1, Datum.ofValue e.2))) ∧
    (∀ entries : List (Datum × Datum), (Datum.map entries).WellKeyed → ∀ v,
      (Datum.map entries).toValue = .ok v → ∃ es : Value.Entries, v = .map es ∧
        List.Forall₂ (fun e f => e.1.toValue = .ok f.1 ∧ e.2.toValue = .ok f.2) entries es) ∧
    Store.initial.Every Datum.WellKeyed ∧
    (∀ (spare : Nat) (scope : ScopeId) (e : Expr),
      Eval.Keeps WellKeyedReply (Store.Every Datum.WellKeyed) Datum.WellKeyed
        (eval (callWithin spare) scope e)) ∧
    (∀ (program : Program) (name : String) (arguments : List Value),
      (∀ v ∈ arguments, v.WellKeyed) →
      Eval.Keeps WellKeyedReply (Store.Every Datum.WellKeyed) Datum.WellKeyed
        (runProgram program name (Datum.ofItems arguments))) := by
  have hreply : ∀ v, WellKeyedReply (.ok v) → (Datum.ofValue v).WellKeyed :=
    fun v hv => Datum.wellKeyed_ofValue (hv v rfl)
  refine ⟨fun v hv => ⟨Datum.wellKeyed_ofValue hv, Datum.toValue_ofValue hv⟩,
    fun a b ha hb v w hv hw => ?_, fun slots h es hes => Datum.toValue_toMap h hes, fun es => ?_,
    fun entries h v hv => Datum.forall₂_of_toValue_map h hv, Store.every_initial,
    eval_keeps Datum.isKept_wellKeyed hreply, fun program name arguments ha => ?_⟩
  · rw [← (Datum.ofValue_of_toValue ha hv).1, ← (Datum.ofValue_of_toValue hb hw).1,
      Datum.same_ofValue]
  · rw [Datum.ofValue, Datum.ofEntries_eq_map]
  · exact runProgram_keeps Datum.isKept_wellKeyed hreply program name (Datum.wellKeyed_ofItems ha)

/-- Pairs that differ in the remembered type alone are one key of a map, on both sides. -/
theorem native_forms_agree_pairKeys :
    (Datum.ofValue (.map [(.pair (.text "a") .unit (some (.str "Z1")), .flag true)])).toValue =
      .ok (.map [(.pair (.text "a") .unit (some (.str "Z1")), .flag true)]) ∧
    ((Datum.pair (.text "a") .null (some (.str "Z1"))).same (.pair (.text "a") .null none) = true ↔
      (Value.pair (.text "a") .unit (some (.str "Z1"))).same (.pair (.text "a") .unit none) = true) ∧
    (∃ m, Datum.apply .toMap [.list
        [.pair (.pair (.text "a") .null (some (.str "Z1"))) (.bool false) none,
          .pair (.pair (.text "a") .null none) (.bool true) none]] = .ok m ∧
      m.toValue = .ok (.map [(.pair (.text "a") .unit (some (.str "Z1")), .flag true)])) ∧
    (∃ es : Value.Entries, Value.map [(.text "a", .flag true)] = .map es ∧
      List.Forall₂ (fun e f => e.1.toValue = .ok f.1 ∧ e.2.toValue = .ok f.2)
        [(Datum.text "a", Datum.bool true)] es) ∧
    Eval.Keeps WellKeyedReply (Store.Every Datum.WellKeyed) Datum.WellKeyed
      (runProgram [.function (.mk "f" ["m"] (.expr (.call (.name "entries") [.name "m"])))] "f"
        (Datum.ofItems [.map [(.text "a", .flag true)]])) := by
  have hkey : ∀ declared, (Value.pair (.text "a") .unit declared).WellKeyed :=
    fun declared => .pair declared (.text "a") .unit
  have hpair : ∀ declared, (Datum.pair (.text "a") .null declared).WellKeyed :=
    fun declared => .pair declared (.text "a") .null
  have hmap : ∀ key : Value, key.WellKeyed → (Value.map [(key, .flag true)]).WellKeyed :=
    fun key hkey => .map (List.pairwise_singleton _ _) (List.forall_mem_singleton.mpr hkey)
      (List.forall_mem_singleton.mpr (.flag true))
  obtain ⟨hnative, hequal, hpairs, -, hentries, -, -, hrun⟩ := native_forms_agree
  refine ⟨(hnative _ (hmap _ (hkey _))).2, hequal _ _ (hpair _) (hpair _) _ _ rfl rfl, ?_,
    hentries [(.text "a", .bool true)] ?_ _ rfl,
    hrun _ "f" [.map [(.text "a", .flag true)]] (List.forall_mem_singleton.mpr (hmap _ (.text "a")))⟩
  · have hmade := hpairs [(.pair (.text "a") .null (some (.str "Z1")), .bool false, none),
      (.pair (.text "a") .null none, .bool true, none)]
      (List.forall_mem_cons.mpr
        ⟨⟨hpair _, .bool false⟩, List.forall_mem_singleton.mpr ⟨hpair _, .bool true⟩⟩) _ rfl
    simpa [Value.Entries.insert, Value.same] using hmade
  · exact .map (List.pairwise_singleton _ _) (List.forall_mem_singleton.mpr (.text "a"))
      (List.forall_mem_singleton.mpr (.bool true))

end Polyglot.Script
