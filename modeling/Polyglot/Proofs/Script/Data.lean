import Polyglot.Json.Record
import Polyglot.Proofs.Association
import Polyglot.Script.Datum.Operators

/-!
# Properties of data that scripts keep

`Datum.IsKept` says of a property that it holds of all data without parts and goes from data to their
parts and back, where a script can take data apart and put them together: pairs get no type, and maps
come to be by insertions.  Scripts make no records.

Such a property is kept by the operators (`IsKept.negate`, `IsKept.binary`, `IsKept.index`,
`IsKept.member`), by what loops visit (`IsKept.elements`) and by the functions that every script has
(`IsKept.apply`).
-/

namespace Polyglot.Script.Datum

/-- Whether scripts keep a property of data when they take them apart and put them together. -/
structure IsKept (Q : Datum → Prop) : Prop where
  /-- It holds of null. -/
  null : Q .null
  /-- It holds of truth values. -/
  bool (b : Bool) : Q (.bool b)
  /-- It holds of integers. -/
  int (n : Int) : Q (.int n)
  /-- It holds of strings. -/
  text (s : String) : Q (.text s)
  /-- It holds of references. -/
  reference (id : String) : Q (.reference id)
  /-- It holds of the functions of the script. -/
  closure (c : Closure) : Q (.closure c)
  /-- It holds of the functions that every script has. -/
  builtin (b : Builtin) : Q (.builtin b)
  /-- It holds of a list of data that have it. -/
  list {items : List Datum} (h : ∀ x ∈ items, Q x) : Q (.list items)
  /-- It goes to the items of a list. -/
  items {items : List Datum} (h : Q (.list items)) : ∀ x ∈ items, Q x
  /-- It holds of a pair of data that have it. -/
  pair {first second : Datum} (h1 : Q first) (h2 : Q second) : Q (.pair first second none)
  /-- It goes to the slots of a pair. -/
  slots {first second : Datum} {declared : Option Json} (h : Q (.pair first second declared)) :
    Q first ∧ Q second
  /-- It holds of the empty map. -/
  empty : Q (.map [])
  /-- It stays when data that have it are inserted into a map. -/
  insert {entries : List (Datum × Datum)} {key value : Datum} (h : Q (.map entries)) (hk : Q key)
    (hv : Q value) : Q (.map (insertEntry key value entries))
  /-- It goes to the keys and values of a map. -/
  entries {entries : List (Datum × Datum)} (h : Q (.map entries)) : ∀ e ∈ entries, Q e.1 ∧ Q e.2
  /-- It goes to the fields of a record. -/
  fields {declared : Option Json} {fields : List (String × Datum)} (h : Q (.record declared fields)) :
    ∀ f ∈ fields, Q f.2

theorem isKept_true : IsKept fun _ => True := by
  constructor <;> intros <;> simp

variable {Q : Datum → Prop}

theorem getD_of_forall {d : Option Datum} {default : Datum} (hd : ∀ x, d = some x → Q x)
    (hdefault : Q default) : Q (d.getD default) := by
  cases d with
  | none => exact hdefault
  | some x => exact hd x rfl

theorem arithmetic_of_forall {op : BinaryOp} {f : Int → Int → Except RuntimeError Datum}
    (hf : ∀ a b d, f a b = .ok d → Q d) {a b d : Datum} (hd : arithmetic op f a b = .ok d) :
    Q d := by
  rw [arithmetic.eq_def] at hd
  split at hd
  · exact hf _ _ _ hd
  · cases hd

theorem mem_of_valueAt? {key x : Datum} {entries : List (Datum × Datum)}
    (hx : valueAt? key entries = some x) : ∃ e ∈ entries, e.2 = x := by
  induction entries with
  | nil => cases hx
  | cons e rest ih =>
    obtain ⟨k, v⟩ := e
    rw [Datum.valueAt?] at hx
    split at hx
    · exact ⟨(k, v), List.mem_cons_self, Option.some.inj hx⟩
    · obtain ⟨e, he, heq⟩ := ih hx
      exact ⟨e, List.mem_cons_of_mem _ he, heq⟩

theorem insertEntry_eq (key value : Datum) (entries : List (Datum × Datum)) :
    insertEntry key value entries = Association.insert same key value entries := by
  induction entries with
  | nil => rfl
  | cons e rest ih => rw [insertEntry, Association.insert, ih]

theorem forall_insertEntry {key value : Datum} {entries : List (Datum × Datum)}
    (h : ∀ e ∈ entries, Q e.1 ∧ Q e.2) (hk : Q key) (hv : Q value) :
    ∀ e ∈ insertEntry key value entries, Q e.1 ∧ Q e.2 := by
  rw [insertEntry_eq]
  exact Association.forall_insert h hk hv

namespace IsKept

variable (h : IsKept Q)

include h

/-! ### Operators -/

theorem checked {n : Int} {d : Datum} (hd : checked n = .ok d) : Q d := by
  rw [Datum.checked] at hd
  split at hd
  · exact Except.ok.inj hd ▸ h.int n
  · cases hd

theorem negate {a d : Datum} (hd : a.negate = .ok d) : Q d := by
  cases a with
  | int n => exact h.checked hd
  | _ => cases hd

theorem quotient {a b : Int} {d : Datum} (hd : quotient a b = .ok d) : Q d := by
  rw [Datum.quotient] at hd
  split at hd
  · cases hd
  · exact h.checked hd

theorem remainder {a b : Int} {d : Datum} (hd : remainder a b = .ok d) : Q d := by
  rw [Datum.remainder] at hd
  cases hq : Datum.quotient a b with
  | error e =>
    rw [hq] at hd
    cases hd
  | ok q =>
    rw [hq] at hd
    exact h.checked hd

theorem add {a b d : Datum} (ha : Q a) (hb : Q b) (hd : a.add b = .ok d) : Q d := by
  rw [add.eq_def] at hd
  split at hd
  · exact h.checked hd
  · exact Except.ok.inj hd ▸ h.text _
  · exact Except.ok.inj hd ▸ h.text _
  · exact Except.ok.inj hd ▸
      h.list fun x hx => (List.mem_append.mp hx).elim (h.items ha x) (h.items hb x)
  · cases hd

theorem compare {a b d : Datum} {f : Ordering → Bool}
    (hd : (compare a b).map (fun o => Datum.bool (f o)) = .ok d) : Q d := by
  cases hc : Datum.compare a b with
  | error e =>
    rw [hc] at hd
    cases hd
  | ok o =>
    rw [hc] at hd
    exact Except.ok.inj hd ▸ h.bool _

theorem binary {op : BinaryOp} {a b d : Datum} (ha : Q a) (hb : Q b) (hd : binary op a b = .ok d) :
    Q d := by
  cases op with
  | equal | notEqual => exact Except.ok.inj hd ▸ h.bool _
  | add => exact h.add ha hb hd
  | sub | mul => exact arithmetic_of_forall (fun _ _ _ => h.checked) hd
  | div => exact arithmetic_of_forall (fun _ _ _ => h.quotient) hd
  | rem => exact arithmetic_of_forall (fun _ _ _ => h.remainder) hd
  | less | lessEqual | greater | greaterEqual => exact h.compare hd

/-! ### Elements -/

theorem chars (s : String) : ∀ x ∈ s.toList.map ofChar, Q x := by
  intro x hx
  obtain ⟨c, _, rfl⟩ := List.mem_map.mp hx
  exact h.text _

theorem entryPairs {entries : List (Datum × Datum)} (he : Q (.map entries)) :
    ∀ x ∈ entryPairs entries, Q x := by
  intro x hx
  obtain ⟨e, hmem, rfl⟩ := List.mem_map.mp hx
  exact h.pair (h.entries he e hmem).1 (h.entries he e hmem).2

theorem elements {d : Datum} {items : List Datum} (hd : Q d) (hitems : d.elements = .ok items) :
    ∀ x ∈ items, Q x := by
  cases d with
  | list _ => exact Except.ok.inj hitems ▸ h.items hd
  | text s => exact Except.ok.inj hitems ▸ h.chars s
  | map _ => exact Except.ok.inj hitems ▸ h.entryPairs hd
  | _ => cases hitems

theorem length {a d : Datum} (hd : a.length = .ok d) : Q d := by
  cases a with
  | list _ | text _ | map _ => exact Except.ok.inj hd ▸ h.int _
  | _ => cases hd

theorem find? {declared : Option Json} {fields : Json.Fields Datum}
    (hr : Q (.record declared fields)) (key : String) :
    Q ((fields.find? key).getD .null) :=
  getD_of_forall (fun _ hx => h.fields hr _ (Json.Fields.mem_of_find? hx)) h.null

theorem member {target d : Datum} {property : String} (ht : Q target)
    (hd : target.member property = .ok d) : Q d := by
  cases target with
  | record _ _ => exact Except.ok.inj hd ▸ h.find? ht property
  | list _ | text _ | map _ =>
    rw [Datum.member] at hd
    split at hd
    · exact h.length hd
    · cases hd
  | pair _ _ _ =>
    obtain ⟨h1, h2⟩ := h.slots ht
    rw [Datum.member] at hd
    split at hd
    · exact Except.ok.inj hd ▸ h1
    · split at hd
      · exact Except.ok.inj hd ▸ h2
      · cases hd
  | _ => cases hd

theorem itemAt {items : List Datum} (hitems : ∀ x ∈ items, Q x) (i : Int) :
    Q (itemAt items i) := by
  rw [Datum.itemAt]
  split
  · exact h.null
  · exact getD_of_forall (fun x hx => hitems x (List.mem_of_getElem? hx)) h.null

theorem valueAt {entries : List (Datum × Datum)} (hm : Q (.map entries)) (key : Datum)
    {default : Datum} (hdefault : Q default) : Q ((valueAt? key entries).getD default) := by
  refine getD_of_forall (fun x hx => ?_) hdefault
  obtain ⟨e, he, rfl⟩ := mem_of_valueAt? hx
  exact (h.entries hm e he).2

theorem index {target position d : Datum} (ht : Q target) (hd : target.index position = .ok d) :
    Q d := by
  rw [index.eq_def] at hd
  split at hd
  · exact Except.ok.inj hd ▸ h.itemAt (h.items ht) _
  · exact Except.ok.inj hd ▸ h.itemAt (h.chars _) _
  · exact Except.ok.inj hd ▸ h.valueAt ht _ h.null
  · exact Except.ok.inj hd ▸ h.find? ht _
  · cases hd

/-! ### Functions that every script has -/

theorem mapOfPairs {items : List Datum} (hitems : ∀ x ∈ items, Q x)
    {entries : List (Datum × Datum)} (he : Q (.map entries)) {d : Datum}
    (hd : mapOfPairs entries items = .ok d) : Q d := by
  induction items generalizing entries with
  | nil => exact Except.ok.inj hd ▸ he
  | cons x rest ih =>
    obtain ⟨hx, hrest⟩ := List.forall_mem_cons.mp hitems
    cases x with
    | pair _ _ _ =>
      obtain ⟨h1, h2⟩ := h.slots hx
      exact ih hrest (h.insert he h1 h2) hd
    | _ => cases hd

theorem splitText (s separator : String) : ∀ x ∈ splitText s separator, Q x := by
  rw [Datum.splitText]
  split
  · exact h.chars s
  · intro x hx
    obtain ⟨part, _, rfl⟩ := List.mem_map.mp hx
    exact h.text _

theorem toInt {a d : Datum} (hd : a.toInt = .ok d) : Q d := by
  cases a with
  | int _ | bool _ => exact Except.ok.inj hd ▸ h.int _
  | text s =>
    rw [Datum.toInt] at hd
    split at hd
    · exact Except.ok.inj hd ▸ h.int _
    · cases hd
  | _ => cases hd

theorem refer {id : String} {d : Datum} (hd : apply.refer id = .ok d) : Q d := by
  rw [apply.refer] at hd
  split at hd
  · cases hd
  · exact Except.ok.inj hd ▸ h.reference id

/-- The functions that every script has keep the property. -/
theorem apply {b : Builtin} {arguments : List Datum} (ha : ∀ x ∈ arguments, Q x) {d : Datum}
    (hd : apply b arguments = .ok d) : Q d := by
  have hfirst : ∀ {x rest}, arguments = x :: rest → Q x :=
    fun heq => ha _ (heq ▸ List.mem_cons_self)
  rw [apply.eq_def] at hd
  -- The cases left are those of a function with the arguments that it takes.
  split at hd <;> try contradiction
  · obtain ⟨h1, h2⟩ := List.forall_mem_cons.mp ha
    exact Except.ok.inj hd ▸ h.pair h1 (h2 _ List.mem_cons_self)
  · exact h.refer hd
  · exact h.refer hd
  · exact h.length hd
  · exact Except.ok.inj hd ▸ h.text _
  · exact h.toInt hd
  · exact h.mapOfPairs (h.items (hfirst rfl)) h.empty hd
  · exact Except.ok.inj hd ▸ h.list (h.entryPairs (hfirst rfl))
  · refine Except.ok.inj hd ▸ h.list fun x hx => ?_
    obtain ⟨e, he, rfl⟩ := List.mem_map.mp hx
    exact (h.entries (hfirst rfl) e he).1
  · refine Except.ok.inj hd ▸ h.list fun x hx => ?_
    obtain ⟨f, _, rfl⟩ := List.mem_map.mp hx
    exact h.text _
  · exact Except.ok.inj hd ▸ h.valueAt (hfirst rfl) _ h.null
  · exact Except.ok.inj hd ▸ h.valueAt (hfirst rfl) _
      (ha _ (List.mem_cons_of_mem _ (List.mem_cons_of_mem _ List.mem_cons_self)))
  · exact Except.ok.inj hd ▸ h.list (h.splitText _ _)
  · exact Except.ok.inj hd ▸ h.text _

end IsKept

end Polyglot.Script.Datum
